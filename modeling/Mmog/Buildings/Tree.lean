import Mmog.Buildings.Frame
import Mmog.Model.Seeds

/-!
# The tree of buildings

What a building requires is tested when it is ordered.  No building is torn
down and no level falls, so it still holds when the job runs, and ever after.
-/

namespace Mmog

open Ruby Game

namespace Rules

variable (rules : Rules)

/-- The planet has a building of this name of at least this level. -/
def Reaches (buildings : List Building) (p : PlanetId) (name : BuildingName) (level : ℕ) : Prop :=
  ∃ building ∈ buildings, building.planet = p ∧ ∃ type, rules.buildingtype building.buildingtype = some type ∧
    type.name = name ∧ level ≤ type.level

/-- The planet has the buildings that a type requires. -/
def Supports (buildings : List Building) (p : PlanetId) (type : Buildingtype) : Prop :=
  ∀ name level, (name, level) ∈ type.requirements → 1 ≤ level → rules.Reaches buildings p name level

variable {rules}

theorem Supports.mono {old new : List Building} {p : PlanetId} {type : Buildingtype}
    (hsupports : rules.Supports old p type)
    (hgrow : ∀ name level, rules.Reaches old p name level → rules.Reaches new p name level) :
    rules.Supports new p type :=
  fun name level hrequired hone => hgrow name level (hsupports name level hrequired hone)

/-- The level that the table of a planet's buildings gives is that of one of them. -/
theorem reaches_buildingsToHash {buildings : List Building} {p : PlanetId} {name : BuildingName} {level : ℕ}
    (hone : 1 ≤ level) (hlevel : level ≤ Planet.buildingsToHash rules.toWorld buildings p name) :
    rules.Reaches buildings p name level := by
  unfold Planet.buildingsToHash at hlevel
  dsimp only at hlevel
  generalize hlast : (List.filter _ _).getLast? = last at hlevel
  cases last with
  | none =>
      rw [Option.map_none, Option.getD_none] at hlevel
      omega
  | some type =>
      obtain ⟨hmem, hname⟩ := List.mem_filter.mp (List.mem_of_getLast? hlast)
      obtain ⟨building, hbuilding, hfind⟩ := List.mem_filterMap.mp hmem
      split at hfind
      · rename_i hplanet
        exact ⟨building, hbuilding, hplanet, type, hfind, of_decide_eq_true hname, hlevel⟩
      · cases hfind

theorem supports_of_requirementsMet {buildings : List Building} {p : PlanetId} {type : Buildingtype}
    (hmet : Planet.requirementsMet (Planet.buildingsToHash rules.toWorld buildings p) type = true) :
    rules.Supports buildings p type := by
  intro name level hrequired hone
  have hlevel := List.all_eq_true.mp hmet (name, level) hrequired
  exact reaches_buildingsToHash hone (of_decide_eq_true hlevel)

end Rules

namespace Planet

variable {rules : Rules} {p q : PlanetId} {buildMe : Buildingtype}

/-- A type that may be ordered is supported. -/
theorem supports_of_buildable {db : Db} {name : BuildingName}
    (hbuildable : buildable rules.toWorld db p name = some buildMe) :
    rules.Supports db.buildings p buildMe := by
  unfold buildable at hbuildable
  dsimp only at hbuildable
  split at hbuildable
  · cases hbuildable
  split at hbuildable
  · cases hbuildable
  split at hbuildable
  · split at hbuildable
    · rename_i hverified
      unfold verifiesNewBuilding? at hverified
      dsimp only at hverified
      split at hverified
      · cases hverified
      · rw [hbuildable, Option.any_some] at hverified
        exact Rules.supports_of_requirementsMet hverified
    · cases hbuildable
  · rename_i old hold
    split at hbuildable
    · rename_i hverified
      obtain ⟨building, -, hfind⟩ := List.exists_of_findSome?_eq_some hold
      have htest := List.find?_some hfind
      have hname := (of_decide_eq_true htest).2
      unfold verifiesUpgradeRequirements? at hverified
      rw [hname, hbuildable, Option.any_some] at hverified
      exact Rules.supports_of_requirementsMet hverified
    · cases hbuildable

/-- A finished building takes the place of a lower one of its name, or of none. -/
theorem Built.grows (hmem : buildMe ∈ rules.buildingtypes) {old new : List Building}
    (hbuilt : Built rules q buildMe old new) {name : BuildingName} {level : ℕ}
    (hreaches : rules.Reaches old p name level) : rules.Reaches new p name level := by
  obtain ⟨building, hbuilding, hplanet, type, htype, hname, hlevel⟩ := hreaches
  cases hbuilt with
  | upgraded hupgrade =>
      obtain ⟨pre, lower, post, lowerType, rfl, -, hlower, hsame, hnext, rfl⟩ :=
        upgradeFirst_eq_some hupgrade
      by_cases heq : building = lower
      · subst heq
        obtain rfl : lowerType = type := Option.some.inj (hlower.symm.trans htype)
        refine ⟨_, List.mem_append_right _ List.mem_cons_self, hplanet, buildMe,
          rules.buildingtype_of_mem hmem, hsame.symm.trans hname, ?_⟩
        omega
      · refine ⟨building, ?_, hplanet, type, htype, hname, hlevel⟩
        rw [List.mem_append, List.mem_cons] at hbuilding ⊢
        exact hbuilding.imp_right fun hrest => Or.inr (hrest.resolve_left heq)
  | added hnone hfirst =>
      exact ⟨building, List.mem_append_left _ hbuilding, hplanet, type, htype, hname, hlevel⟩

/-- A building that is there was there before, or it is the finished one. -/
theorem Built.origin {old new : List Building} (hbuilt : Built rules q buildMe old new) {building : Building}
    (hbuilding : building ∈ new) : building ∈ old ∨ building = ⟨q, buildMe.id⟩ := by
  cases hbuilt with
  | upgraded hupgrade =>
      obtain ⟨pre, lower, post, lowerType, rfl, rfl, -, -, -, rfl⟩ := upgradeFirst_eq_some hupgrade
      rw [List.mem_append, List.mem_cons] at hbuilding ⊢
      tauto
  | added hnone hfirst =>
      rw [List.mem_append, List.mem_singleton] at hbuilding
      exact hbuilding

end Planet

/-- What is built and what is ordered is supported by the buildings there are. -/
structure Supported (rules : Rules) (buildings : List Building) (jobs : List Job) : Prop where
  built : ∀ building ∈ buildings, ∀ type, rules.buildingtype building.buildingtype = some type →
    rules.Supports buildings building.planet type
  ordered : ∀ p id, .buildBuildings p id ∈ jobs → ∀ type, rules.buildingtype id = some type →
    rules.Supports buildings p type

namespace Supported

variable {rules : Rules}

theorem site : SiteFrame rules (Supported rules) where
  fewer hrest hold := ⟨hold.built, fun p id hjob => hold.ordered p id (hrest hjob)⟩
  other := by
    intro buildings jobs job hother hold
    refine ⟨hold.built, fun p id hjob => ?_⟩
    rcases List.mem_cons.mp hjob with heq | hjobs
    · exact absurd heq.symm (hother p id)
    · exact hold.ordered p id hjobs
  order := by
    intro db p name type hbuildable hold
    refine ⟨hold.built, fun q id hjob other htype => ?_⟩
    rcases List.mem_cons.mp hjob with heq | hjobs
    · cases heq
      rw [rules.buildingtype_of_mem (Planet.buildable_cases hbuildable).1] at htype
      cases htype
      exact Planet.supports_of_buildable hbuildable
    · exact hold.ordered q id hjobs other htype
  build := by
    intro buildings new jobs p buildMe hmem hjob hbuilt hold
    have hgrow : ∀ q name level, rules.Reaches buildings q name level → rules.Reaches new q name level :=
      fun q name level => hbuilt.grows hmem
    constructor
    · intro building hbuilding type htype
      rcases hbuilt.origin hbuilding with hthere | rfl
      · exact (hold.built building hthere type htype).mono (hgrow _)
      · exact (hold.ordered p buildMe.id hjob type htype).mono (hgrow p)
    · intro q id hpending type htype
      exact (hold.ordered q id hpending type htype).mono (hgrow q)

end Supported

namespace Planet

deriving instance DecidableEq for Building

/-- User 1 claims planet 2, and the four buildings that come with it are finished. -/
def settling : List GameEvent :=
  [.claim 2 1, .fleets (.schedule 0), .fleets (.schedule 0), .fleets (.schedule 0), .fleets (.schedule 0),
    .workPlanet 0, .workPlanet 0, .workPlanet 0, .workPlanet 0]

def settledGame : Game := (run (GameEvent.step Seeds.rules) deserted settling).get (by decide)

/-- The mine is upgraded. -/
def digging : List GameEvent :=
  [.createBuildingJob 2 .oremine, .fleets (.wait 60), .fleets (.schedule 1), .workPlanet 0]

def diggingGame : Game := (run (GameEvent.step Seeds.rules) settledGame digging).get (by decide)

theorem settled_run : run (GameEvent.step Seeds.rules) deserted settling = some settledGame :=
  (Option.some_get _).symm

theorem digging_run : run (GameEvent.step Seeds.rules) settledGame digging = some diggingGame :=
  (Option.some_get _).symm

end Planet

end Mmog
