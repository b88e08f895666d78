import Mmog.Buildings.Tree
import Mmog.Research.Laboratories
import Mmog.Research.Outcome
import Mmog.Ruby.Visits

/-!
# Laboratories come before technologies

The research level of a user is only ever written from the laboratories on his
planets, and nothing is researched above it.  So whatever a user knows, he once
had a laboratory for it.
-/

namespace Mmog

open Ruby Action Game Technology

/-- The level, the ranks and the research of all users are what they were. -/
structure Game.SameStudies (game next : Game) : Prop where
  level : ∀ u, (next.profiles u).researchlvl = (game.profiles u).researchlvl
  ranks : next.ranks = game.ranks
  researches : next.researches = game.researches

namespace Game.SameStudies

variable {game next : Game}

theorem refl (game : Game) : game.SameStudies game := ⟨fun _ => rfl, rfl, rfl⟩

theorem setDb (hsame : game.SameStudies next) (db : Db) : game.SameStudies (next.setDb db) :=
  ⟨hsame.level, hsame.ranks, hsame.researches⟩

theorem setQueue (hsame : game.SameStudies next) (queue : Table ShipBuildingQueue) (addShips : Backlog AddShip) :
    game.SameStudies { next with queue, addShips } :=
  ⟨hsame.level, hsame.ranks, hsame.researches⟩

/-- What a user is besides his level does not count. -/
theorem setProfile (hsame : game.SameStudies next) (user : UserId) {profile : Profile}
    (hlevel : profile.researchlvl = (next.profiles user).researchlvl) :
    game.SameStudies (next.setProfile user profile) := by
  refine ⟨fun u => ?_, hsame.ranks, hsame.researches⟩
  rw [Game.setProfile]
  dsimp only
  split
  · rename_i heq
    rw [hlevel, heq]
    exact hsame.level user
  · exact hsame.level u

/-! ## What does not study -/

theorem onDb {α : Type} (action : Act α) : Safe game.SameStudies (Game.onDb action) anything := by
  refine fun state hstate => ⟨?_, fun _ _ => trivial⟩
  rw [after_onDb]
  exact hstate.setDb _

theorem claimStartplanetFor (rules : Rules) (u : UserId) (markerPos : ℕ) :
    Safe game.SameStudies (Planet.claimStartplanetFor rules u markerPos) anything := by
  refine Safe.get.bind fun state _ => Safe.ite (fun _ => Safe.pure trivial) fun _ => ?_
  cases Planet.searchStartplanet rules state.db markerPos with
  | none => exact Safe.pure trivial
  | some p =>
      refine (onDb (Planet.claim rules.toWorld p u)).bind fun _ _ => ?_
      exact (Safe.modify fun state hstate => hstate.setProfile u rfl).bind fun _ _ => Safe.pure trivial

theorem deleteBuildingJob (rules : Rules) (p : PlanetId) (buildingtype : ℕ) :
    Safe game.SameStudies (Planet.deleteBuildingJob rules p buildingtype) anything := by
  refine Safe.get.bind fun _ _ => (onDb _).bind fun _ _ => Safe.ite (fun _ => ?_) fun _ => Safe.pure trivial
  refine (Safe.modify fun state hstate => hstate.setDb _).bind fun _ _ => ?_
  cases rules.buildingtype buildingtype with
  | none => exact Safe.throw _ _
  | some destroyMe =>
      refine (onDb _).bind fun _ _ => (onDb _).bind fun _ _ => (onDb _).bind fun _ _ => ?_
      exact (onDb _).bind fun _ _ => Safe.pure trivial

theorem abortUpgrade (rules : Rules) (p : PlanetId) (buildingtype : ℕ) :
    Safe game.SameStudies (Planet.abortUpgrade rules p buildingtype) anything := by
  refine (deleteBuildingJob rules p buildingtype).bind fun _ _ => ?_
  exact Safe.ite (fun _ => Safe.pure trivial) fun _ => Safe.modify fun state hstate => hstate.setDb _

theorem produce (rules : Rules) (p : PlanetId) (planet : Planet) :
    Safe game.SameStudies (Planet.produce rules p planet) anything := by
  have hreads := fun planet name => Planet.getProduction_reads (J := game.SameStudies) rules p planet name
  refine (hreads _ .oremine).bind fun _ _ => (hreads _ .city).bind fun _ _ => ?_
  refine (hreads _ .crystalmine).bind fun _ _ => (hreads _ .headquarter).bind fun _ _ => ?_
  dsimp only
  cases planet.user with
  | none => exact Safe.throw _ _
  | some u =>
      refine (Safe.modify fun state hstate => hstate.setDb _).bind fun _ _ => Safe.get.bind fun _ _ => ?_
      split
      · exact Safe.throw _ _
      · exact Safe.pure trivial

theorem updateResources (rules : Rules) (p : PlanetId) :
    Safe game.SameStudies (Planet.updateResources rules p) anything := by
  have hrest : ∀ planet : Planet, Safe game.SameStudies (do
      let power ← Planet.getProduction rules p planet .powerplant
      let planet := { planet with energy := Planet.grow planet.energy power planet.maxenergy }
      Game.onDb (Planet.createProductionJob p)
      modify fun game => game.setDb (game.db.setPlanet p planet) : GameAct Unit) anything := by
    intro planet
    refine (Planet.getProduction_reads rules p planet .powerplant).bind fun _ _ => ?_
    exact (onDb _).bind fun _ _ => Safe.modify fun state hstate => hstate.setDb _
  refine Safe.get.bind fun _ _ => ?_
  dsimp only
  exact Safe.ite (fun _ => (produce rules p _).bind fun planet _ => hrest planet)
    fun _ => Safe.bind (φ := anything) (Safe.pure trivial) fun planet _ => hrest planet

theorem insertAll (rules : Rules) (planet : PlanetId) (entries : List (ShipId × ℤ)) :
    Safe game.SameStudies (ShipBuildingQueue.insertAll rules planet entries) anything := by
  induction entries with
  | nil => exact Safe.pure trivial
  | cons entry entries ih =>
      refine Safe.bind (φ := anything) (Safe.get.bind fun state hstate => ?_) fun _ _ => ih
      exact Safe.set (hstate.setQueue _ _)

theorem insert (rules : Rules) (s : Hash ShipId ℤ) (planet : PlanetId) :
    Safe game.SameStudies (ShipBuildingQueue.insert rules s planet) anything := by
  refine (onDb _).bind fun _ _ => (onDb _).bind fun _ _ => (onDb _).bind fun _ _ => (onDb _).bind fun _ _ => ?_
  refine Safe.ite (fun _ => ?_) fun _ => ?_
  · exact (insertAll rules planet s.entries).bind fun _ _ => Safe.pure trivial
  · refine (onDb _).bind fun _ _ => (onDb _).bind fun _ _ => (onDb _).bind fun _ _ => ?_
    exact (onDb _).bind fun _ _ => Safe.pure trivial

theorem removeQueue (rules : Rules) (id : ℕ) :
    Safe game.SameStudies (ShipBuildingQueue.removeQueue rules id) anything := by
  refine Safe.get.bind fun state _ => ?_
  cases state.queue.get id with
  | none => exact Safe.throw _ _
  | some self =>
      have hupdate : ∀ t b, Safe game.SameStudies (ShipBuildingQueue.updateTime t self.planet b) anything :=
        fun t b => Safe.get.bind fun state hstate => Safe.set (hstate.setQueue _ _)
      refine (Safe.modify fun state hstate => hstate.setQueue _ _).bind fun _ _ => (hupdate _ _).bind fun _ _ => ?_
      refine (onDb _).bind fun _ _ => (onDb _).bind fun _ _ => (onDb _).bind fun _ _ => (onDb _).bind fun _ _ => ?_
      exact Safe.modify fun state hstate => hstate.setQueue _ _

theorem deliver (rules : Rules) (job : AddShip) : Safe game.SameStudies (job.perform rules) anything := by
  refine (onDb _).bind fun _ _ => Safe.modify fun state hstate => ?_
  split
  · exact hstate.setQueue _ _
  · exact hstate

end Game.SameStudies

/-! ## What a user has had -/

section Learning

variable (rules : Rules) (seen : Game → Prop)

/-- In a game that was seen the user owned a planet with a laboratory of at least this level. -/
def Equipped (u : UserId) (level : ℕ) : Prop :=
  ∃ game, seen game ∧ ∃ p, (game.db.planets p).user = some u ∧
    rules.Reaches game.db.buildings p .researchLab level

/-- The user has had a laboratory for this technology, if it needs one. -/
def Qualified (u : UserId) (id : TechnologyId) : Prop :=
  ∀ first, (rules.requires id).head? = some first → 1 ≤ first.buildingRank →
    Equipped rules seen u first.buildingRank

/-- Levels are those of laboratories that were seen, and for what is known or researched there was one. -/
structure Learned (game : Game) : Prop where
  level : ∀ u level, 1 ≤ level → level ≤ (game.profiles u).researchlvl → Equipped rules seen u level
  ranked : ∀ u id rank, game.ranks u id = some rank → Qualified rules seen u id
  pending : ∀ job ∈ game.researches.pending, Qualified rules seen job.user job.technology

end Learning

/-- A level that is not above a user's research level is reached on one of his planets. -/
theorem Planet.exists_of_le_maxResearchLevel {rules : Rules} {db : Db} {u : UserId} {level : ℕ} (hone : 1 ≤ level)
    (hlevel : level ≤ Planet.maxResearchLevel rules db u) :
    ∃ p, (db.planets p).user = some u ∧ rules.Reaches db.buildings p .researchLab level := by
  by_contra hnone
  have hlow : Planet.maxResearchLevel rules db u ≤ level - 1 := by
    refine foldl_max_le_iff.mpr ⟨Nat.zero_le _, fun n hn => ?_⟩
    obtain ⟨p, hp, rfl⟩ := List.mem_map.mp hn
    by_contra hhigh
    refine hnone ⟨p, of_decide_eq_true (List.mem_filter.mp hp).2, Rules.reaches_buildingsToHash hone ?_⟩
    omega
  omega

namespace Technology

variable {game : Game} {id : TechnologyId} {user : UserId} (row : TechnologyRow)

@[simp] theorem researchlvl_updateSetting (rank : ℕ) (u : UserId) :
    ((updateSetting game user row rank).profiles u).researchlvl = (game.profiles u).researchlvl := by
  unfold updateSetting
  split
  · rfl
  all_goals
    simp only [Game.setProfile]
    split <;> simp_all

theorem researches_finished : (finished game id user row).researches = game.researches :=
  researches_updateSetting user row _

theorem researchlvl_finished (u : UserId) :
    ((finished game id user row).profiles u).researchlvl = (game.profiles u).researchlvl := by
  simp only [finished, Game.setProfile]
  split <;> simp_all

end Technology

namespace Learned

variable {rules : Rules} {seen : Game → Prop} {game next : Game}

theorem of_same (hlearned : Learned rules seen game) (hsame : game.SameStudies next) :
    Learned rules seen next where
  level u level hone hlevel := hlearned.level u level hone (hsame.level u ▸ hlevel)
  ranked u id rank hrank := hlearned.ranked u id rank (hsame.ranks ▸ hrank)
  pending job hjob := hlearned.pending job (hsame.researches ▸ hjob)

/-- What is not researched any more does not count. -/
theorem of_fewer (hlearned : Learned rules seen game)
    (hlevel : ∀ u, (next.profiles u).researchlvl = (game.profiles u).researchlvl) (hranks : next.ranks = game.ranks)
    (hpending : ∀ job ∈ next.researches.pending, job ∈ game.researches.pending) : Learned rules seen next where
  level u level hone hle := hlearned.level u level hone (hlevel u ▸ hle)
  ranked u id rank hrank := hlearned.ranked u id rank (hranks ▸ hrank)
  pending job hjob := hlearned.pending job (hpending job hjob)

/-- The level is tested when research starts. -/
theorem upgrade (hlearned : Learned rules seen game) (id : TechnologyId) (user : UserId) :
    Learned rules seen (after ((upgradeTechnology rules id user).run game)) := by
  rw [upgrade_outcome]
  cases hstartable : startable rules game id user with
  | none => exact hlearned
  | some row =>
      obtain ⟨-, -, haccepted⟩ := startable_eq_some rules game id user hstartable
      refine ⟨fun u level hone hle => hlearned.level u level hone ?_, hlearned.ranked, fun job hjob => ?_⟩
      · dsimp only [started, Game.setDb, Game.setProfile] at hle
        split at hle
        · rename_i heq
          exact heq ▸ hle
        · exact hle
      · rcases List.mem_cons.mp ((Backlog.pending_enqueueAt _ _ _).mem_iff.mp hjob) with rfl | hold
        · intro first hfirst hone
          refine hlearned.level user first.buildingRank hone ?_
          rw [technologyRequire?, hfirst] at haccepted
          exact (of_decide_eq_true (Except.ok.inj haccepted)).1
        · exact hlearned.pending job hold

theorem abort (hlearned : Learned rules seen game) (id : TechnologyId) (user : UserId) :
    Learned rules seen (after ((abortTechnology rules id user).run game)) := by
  rw [abort_outcome]
  cases rules.technology id with
  | none => exact hlearned
  | some row =>
      refine hlearned.of_fewer (fun u => ?_) rfl fun job => subset_pending_aborted row
      dsimp only [aborted, Game.setDb, Game.setProfile]
      split
      · rename_i heq
        rw [heq]
      · rfl

/-- What is known now was researched before. -/
theorem finish (hlearned : Learned rules seen game) {job : ResearchTechnology} {rest : Backlog ResearchTechnology}
    (htake : game.researches.pending.Perm (job :: rest.pending)) :
    Learned rules seen (after ((job.perform rules).run { game with researches := rest })) := by
  have hrest : ∀ other ∈ rest.pending, other ∈ game.researches.pending := fun other hother =>
    htake.mem_iff.mpr (List.mem_cons_of_mem job hother)
  have htaken : Learned rules seen { game with researches := rest } := hlearned.of_fewer (fun _ => rfl) rfl hrest
  rw [ResearchTechnology.perform, finish_outcome]
  cases rules.technology job.technology with
  | none => exact htaken
  | some row =>
      refine ⟨fun u level hone hle => ?_, fun u id rank hrank => ?_, fun other hother => ?_⟩
      · rw [researchlvl_finished] at hle
        exact htaken.level u level hone hle
      · rw [ranks_finished] at hrank
        split at hrank
        · rename_i heq
          obtain ⟨rfl, rfl⟩ := heq
          exact hlearned.pending job (htake.mem_iff.mpr List.mem_cons_self)
        · exact htaken.ranked u id rank hrank
      · rw [researches_finished] at hother
        exact htaken.pending other hother

/-- The level that is written when a building is finished is that of a laboratory of the owner. -/
theorem build (hlearned : Learned rules seen game) {p : PlanetId} {id : ℕ}
    (hseen : seen (after ((Planet.buildBuilding rules p id).run game))) :
    Learned rules seen (after ((Planet.buildBuilding rules p id).run game)) := by
  obtain hidle | ⟨buildMe, new, -, hleveled⟩ := Planet.buildBuilding_leveled rules p id game
  · rw [hidle]
    exact hlearned.of_same ((Game.SameStudies.refl game).setDb _)
  · rw [hleveled] at hseen ⊢
    generalize Planet.finished rules p buildMe new (Planet.constructing game.db p 0) = db at hseen ⊢
    unfold Planet.leveled at hseen ⊢
    split
    · exact hlearned.of_same ((Game.SameStudies.refl game).setDb db)
    · rename_i u huser
      rw [huser] at hseen
      refine ⟨fun v level hone hle => ?_, hlearned.ranked, hlearned.pending⟩
      by_cases heq : v = u
      · subst heq
        have hlevel : level ≤ Planet.maxResearchLevel rules db v := by simpa [Game.setProfile] using hle
        obtain ⟨q, howner, hreaches⟩ := Planet.exists_of_le_maxResearchLevel hone hlevel
        exact ⟨_, hseen, q, howner, hreaches⟩
      · refine hlearned.level v level hone ?_
        simpa [Game.setProfile, heq] using hle

theorem step (hlearned : Learned rules seen game) {event : GameEvent} (hseen : seen next)
    (hstep : event.step rules game = some next) : Learned rules seen next := by
  have hends : ∀ {α : Type} {action : GameAct α} {φ : α → Prop} {start : Game}, game.SameStudies start →
      Safe game.SameStudies action φ → GameEvent.ends action start = some next → Learned rules seen next := by
    intro α action φ start hstart hsafe hsome
    cases hsome
    exact hlearned.of_same (hsafe.after hstart)
  have hrefl : game.SameStudies game := .refl game
  cases event with
  | fleets event =>
      obtain ⟨db, -, rfl⟩ := Option.map_eq_some_iff.mp hstep
      exact hlearned.of_same (hrefl.setDb db)
  | claim planet user => exact hends hrefl (SameStudies.onDb _) hstep
  | claimStartplanetFor user markerPos => exact hends hrefl (SameStudies.claimStartplanetFor rules user markerPos) hstep
  | give planet type number => exact hends hrefl (SameStudies.onDb _) hstep
  | take planet type number => exact hends hrefl (SameStudies.onDb _) hstep
  | createBuildingJob planet name => exact hends hrefl (SameStudies.onDb _) hstep
  | deleteBuildingJob planet buildingtype =>
      exact hends hrefl (SameStudies.deleteBuildingJob rules planet buildingtype) hstep
  | abortUpgrade planet buildingtype => exact hends hrefl (SameStudies.abortUpgrade rules planet buildingtype) hstep
  | updateResources planet => exact hends hrefl (SameStudies.updateResources rules planet) hstep
  | workPlanet index =>
      simp only [GameEvent.step] at hstep
      split at hstep
      · rename_i job hget
        cases job with
        | buildBuildings planet buildingtype =>
            cases hstep
            rw [after_bind_pure] at hseen ⊢
            exact (hlearned.of_same (hrefl.setDb _)).build hseen
        | produceResources planet => exact hends (hrefl.setDb _) (SameStudies.updateResources rules planet) hstep
        | _ => cases hstep
      · cases hstep
  | insert planet ships => exact hends hrefl (SameStudies.insert rules ships planet) hstep
  | removeQueue id => exact hends hrefl (SameStudies.removeQueue rules id) hstep
  | fireShip index =>
      simp only [GameEvent.step] at hstep
      split at hstep
      · exact hends (hrefl.setQueue _ _) (SameStudies.deliver rules _) hstep
      · cases hstep
  | scheduleShip index =>
      obtain ⟨addShips, -, rfl⟩ := Option.map_eq_some_iff.mp hstep
      exact hlearned.of_same (hrefl.setQueue _ _)
  | workShip index =>
      simp only [GameEvent.step] at hstep
      split at hstep
      · exact hends (hrefl.setQueue _ _) (SameStudies.deliver rules _) hstep
      · cases hstep
  | upgradeTechnology id user =>
      cases hstep
      exact hlearned.upgrade id user
  | abortTechnology id user =>
      cases hstep
      exact hlearned.abort id user
  | fireResearch index =>
      simp only [GameEvent.step] at hstep
      split at hstep
      · rename_i job rest htake
        cases hstep
        exact hlearned.finish (Backlog.takeDelayed_eq_some htake).1
      · cases hstep
  | scheduleResearch index =>
      obtain ⟨researches, hschedule, rfl⟩ := Option.map_eq_some_iff.mp hstep
      exact hlearned.of_fewer (fun _ => rfl) rfl fun job => (Backlog.schedule_pending hschedule).mem_iff.mp
  | workResearch index =>
      simp only [GameEvent.step] at hstep
      split at hstep
      · rename_i job rest htake
        cases hstep
        exact hlearned.finish (Backlog.takeReady_eq_some htake).1
      · cases hstep

end Learned

namespace Technology

/-- Whoever knows or researches a technology owned, at some moment of the run, a planet with a laboratory of
the level that it requires, over every run of the whole game from one in which nobody knows anything. -/
theorem laboratory_before_technology (rules : Rules) {start game : Game} {events : List GameEvent}
    (hlevels : ∀ u, (start.profiles u).researchlvl = 0) (hranks : ∀ u id, start.ranks u id = none)
    (hpending : start.researches.pending = []) (hrun : run (GameEvent.step rules) start events = some game)
    {u : UserId} {id : TechnologyId}
    (hknown : (∃ rank, game.ranks u id = some rank) ∨ ⟨u, id⟩ ∈ game.researches.pending)
    {first : TechnologyRequire} (hfirst : (rules.requires id).head? = some first) (hone : 1 ≤ first.buildingRank) :
    ∃ mid, Visits (GameEvent.step rules) start events mid ∧ ∃ p, (mid.db.planets p).user = some u ∧
      rules.Reaches mid.db.buildings p .researchLab first.buildingRank := by
  have hstart : Learned rules (Visits (GameEvent.step rules) start events) start := by
    refine ⟨fun u level hone hle => ?_, fun u id rank hrank => ?_, fun job hjob => ?_⟩
    · rw [hlevels u] at hle
      omega
    · rw [hranks u id] at hrank
      cases hrank
    · rw [hpending] at hjob
      cases hjob
  have hlearned := run_visits (fun _ _ _ _ hseen hlearned hstep => Learned.step hlearned hseen hstep) hstart hrun
  rcases hknown with ⟨rank, hrank⟩ | hjob
  · exact hlearned.ranked u id rank hrank first hfirst hone
  · exact hlearned.pending _ hjob first hfirst hone

/-- The rules with other types of buildings. -/
def withTypes (rules : Rules) (types : List Buildingtype) (hnodup : (types.map Buildingtype.id).Nodup)
    (hlevel : ∀ type ∈ types, 1 ≤ type.level) : Rules := { rules with
  buildingtypes := types
  buildingtypes_nodup := hnodup
  one_le_level := hlevel }

/-- The types on the way to the first laboratory. -/
def workshopRules : Rules :=
  withTypes Seeds.rules (Seeds.buildingtypes ++
    [⟨7, .oremine, 2, 60, 5, 0, 100, 40, [(.oremine, 1), (.powerplant, 1), (.headquarter, 1), (.city, 1)]⟩,
      ⟨8, .oremine, 3, 100, 10, 0, 250, 60, [(.oremine, 2), (.powerplant, 1), (.headquarter, 1), (.city, 1)]⟩,
      ⟨31, .researchLab, 1, 5, 200, 0, 0, 100, [(.oremine, 3), (.powerplant, 1), (.headquarter, 1), (.city, 1)]⟩])
    (by decide) (by decide)

/-- Nobody has a planet, and nobody a research level. -/
def unlearned : Game := { deserted with profiles := fun _ => {} }

/-- User 1 settles on planet 2, digs for the laboratory, builds it and starts the first research. -/
def studying : List GameEvent :=
  Planet.settling ++ [.createBuildingJob 2 .oremine, .fleets (.wait 60), .fleets (.schedule 1), .workPlanet 0,
    .createBuildingJob 2 .oremine, .fleets (.wait 100), .fleets (.schedule 1), .workPlanet 0,
    .createBuildingJob 2 .researchLab, .fleets (.wait 5), .fleets (.schedule 1), .workPlanet 0,
    .upgradeTechnology 1 1]

def studyingGame : Game := (run (GameEvent.step workshopRules) unlearned studying).get (by decide)

theorem laboratory_before_technology_studying :
    ⟨1, 1⟩ ∈ studyingGame.researches.pending ∧
      ∃ mid, Visits (GameEvent.step workshopRules) unlearned studying mid ∧ ∃ p, (mid.db.planets p).user = some 1 ∧
        workshopRules.Reaches mid.db.buildings p .researchLab 1 := by
  have hrun : run (GameEvent.step workshopRules) unlearned studying = some studyingGame := (Option.some_get _).symm
  have hjob : ⟨1, 1⟩ ∈ studyingGame.researches.pending := by decide +kernel
  have hfirst : (workshopRules.requires 1).head? = some ⟨1, 1, 0, 0⟩ := by decide
  refine ⟨hjob, ?_⟩
  exact laboratory_before_technology workshopRules (fun _ => rfl) (fun _ _ => rfl) rfl hrun (Or.inr hjob) hfirst
    (le_refl 1)

end Technology

end Mmog
