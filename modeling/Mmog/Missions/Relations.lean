import Mmog.Community.Outcome
import Mmog.Model.Fight
import Mmog.Model.Seeds

/-!
# Whom a mission meets

Five missions sort their target planet by its owner and report what they found.
They take the owner for an ally as well if neither of the two users has an
alliance, since the comparison of their alliances then compares nil with nil.
-/

namespace Mmog

open Ruby Action

/-- A mission that reaches its target planet, with what it draws. -/
inductive Arrival where
  | attack (draws : Draws)
  | spy (r : ℚ) (ownSpyFactor : Factor)
  | colonize
  | travel
  | transport

namespace Arrival

variable (w : World) (self : Fleet) (planet : PlanetId)

/-- The mode of the report: nobody's planet is 3 in a battle report, one of the alliance 4 and an own
one 5, in the other reports 1, 2 and 3; an enemy's is 0, or 4 when the drone was destroyed. -/
def mode : Arrival → Relation → ℕ
  | .attack _, .unknown => 3
  | .attack _, .own => 5
  | .attack _, .allied => 4
  | .spy r ownSpyFactor, .enemy => if Numeric.float ownSpyFactor - .float r < Numeric.lit (4 / 5) then 4 else 0
  | _, .unknown => 1
  | _, .own => 3
  | _, .allied => 2
  | _, .enemy => 0

def run : Arrival → Act Unit
  | .attack draws => self.attack w draws planet
  | .spy r ownSpyFactor => self.spy w r ownSpyFactor planet
  | .colonize => self.colonize w planet
  | .travel => self.travel w planet
  | .transport => self.transport w planet

/-- The mission, which gives back the mode of its report. -/
def perform (arrival : Arrival) : Act ℕ := do
  let mode := arrival.mode ((← get).relation self.user planet)
  arrival.run w self planet
  return mode

/-- What is to be done with a planet of this relation. -/
def treatment : Arrival → Relation → Act Unit
  | .attack draws, .enemy => do
      match ← self.fight w draws planet with
      | none => return
      | some self => self.returnToOrigin w planet
  | .spy r ownSpyFactor, .enemy => do
      if Numeric.float ownSpyFactor - .float r < Numeric.lit (4 / 5) then self.destroy
      else self.returnToOrigin w planet
  | .colonize, .unknown => self.settle w planet
  | .travel, .own => do
      match ← Fleet.getHomeFleet planet with
      | none => throw .noMethodError
      | some homeFleet => let _ ← homeFleet.mergeFleet w (some self)
  | .travel, .allied => do
      let now : ℤ := (← get).now
      let self : Fleet := { self with
        startPlanet := self.targetPlanet
        arrivalTime := now
        departureTime := now }
      self.save
  | .transport, .own => do
      let self ← self.unloadRessources planet
      self.returnToOrigin w planet
  | .transport, .allied => do
      let self ← self.unloadRessources planet
      self.returnToOrigin w planet
  | _, _ => self.returnToOrigin w planet

/-- Treats the planet as one of this relation, and reports so. -/
def treat (arrival : Arrival) (relation : Relation) : Act ℕ := do
  arrival.treatment w self planet relation
  return arrival.mode relation

theorem run_eq_treatment (arrival : Arrival) (db : Db) :
    (arrival.run w self planet).run db =
      (arrival.treatment w self planet (db.relation self.user planet)).run db := by
  cases arrival with
  | attack draws =>
      unfold run Fleet.attack
      rw [run_bind_get]
      cases db.relation self.user planet <;> rfl
  | spy r ownSpyFactor =>
      unfold run Fleet.spy
      rw [run_bind_get]
      cases db.relation self.user planet <;> rfl
  | colonize =>
      unfold run Fleet.colonize
      rw [run_bind_get]
      cases db.relation self.user planet <;> rfl
  | travel =>
      unfold run Fleet.travel
      rw [run_bind_get]
      cases db.relation self.user planet <;> rfl
  | transport =>
      unfold run Fleet.transport
      rw [run_bind_get]
      cases db.relation self.user planet <;> rfl

/-- Every mission treats its target by the relation that is computed. -/
theorem perform_eq_treat (arrival : Arrival) (db : Db) :
    (arrival.perform w self planet).run db =
      (arrival.treat w self planet (db.relation self.user planet)).run db := by
  rw [perform, run_bind_get, treat]
  have hrun := run_eq_treatment w self planet arrival db
  cases htreatment : (arrival.treatment w self planet (db.relation self.user planet)).run db with
  | ok _ next => rw [run_bind_of_ok (hrun.trans htreatment), run_bind_of_ok htreatment]
  | error err next => rw [run_bind_of_error (hrun.trans htreatment), run_bind_of_error htreatment]

end Arrival

/-! ## The real relation -/

namespace Community

/-- Both users belong to one and the same alliance that exists. -/
def SameAlliance (c : Community) (u v : UserId) : Prop :=
  ∃ alliance first second, (c.alliances.get alliance).isSome = true ∧
    c.users.get u = some first ∧ first.alliance = some alliance ∧
    c.users.get v = some second ∧ second.alliance = some alliance

theorem sameAlliance_iff {c : Community} {u v : UserId} : c.SameAlliance u v ↔
    ∃ alliance, c.allianceOf u = some alliance ∧ c.allianceOf v = some alliance := by
  simp only [SameAlliance, allianceOf_eq_some]
  constructor
  · rintro ⟨alliance, first, second, hexists, hu, hfirst, hv, hsecond⟩
    exact ⟨alliance, ⟨first, hu, hfirst, hexists⟩, second, hv, hsecond, hexists⟩
  · rintro ⟨alliance, ⟨first, hu, hfirst, hexists⟩, second, hv, hsecond, -⟩
    exact ⟨alliance, first, second, hexists, hu, hfirst, hv, hsecond⟩

end Community

namespace Db

variable (c : Community) (db : Db) (user : UserId) (planet : PlanetId)

/-- The database with the alliances that the users have in the community. -/
def inCommunity : Db :=
  { db with users := fun u => { db.users u with alliance := c.allianceOf u } }

/-- What a relation means. -/
def IsRelation : Relation → Prop
  | .unknown => (db.planets planet).user = none
  | .own => (db.planets planet).user = some user
  | .allied => ∃ other, (db.planets planet).user = some other ∧ other ≠ user ∧ c.SameAlliance other user
  | .enemy => ∃ other, (db.planets planet).user = some other ∧ other ≠ user ∧ ¬c.SameAlliance other user

/-- The owner and the user are two, and neither has an alliance. -/
def BothAlone : Prop :=
  ∃ other, (db.planets planet).user = some other ∧ other ≠ user ∧
    c.allianceOf other = none ∧ c.allianceOf user = none

theorem relation_inCommunity {other : UserId} (howner : (db.planets planet).user = some other)
    (hne : other ≠ user) : (db.inCommunity c).relation user planet =
      if c.allianceOf other = c.allianceOf user then .allied else .enemy := by
  have hset : ((db.inCommunity c).planets planet).user = some other := howner
  rw [relation, hset]
  exact if_neg hne

/-- The relation that is computed is the real one unless both users are alone. -/
theorem isRelation_of_not_bothAlone (hnot : ¬db.BothAlone c user planet) :
    db.IsRelation c user planet ((db.inCommunity c).relation user planet) := by
  cases howner : (db.planets planet).user with
  | none =>
      have hrelation : (db.inCommunity c).relation user planet = .unknown := by
        have hset : ((db.inCommunity c).planets planet).user = none := howner
        rw [relation, hset]
      rw [hrelation]
      exact howner
  | some other =>
      by_cases hown : other = user
      · have hrelation : (db.inCommunity c).relation user planet = .own := by
          have hset : ((db.inCommunity c).planets planet).user = some other := howner
          rw [relation, hset]
          exact if_pos hown
        rw [hrelation]
        exact howner.trans (congrArg some hown)
      · rw [db.relation_inCommunity c user planet howner hown]
        split
        · rename_i hsame
          refine ⟨other, howner, hown, Community.sameAlliance_iff.mpr ?_⟩
          cases halliance : c.allianceOf other with
          | none => exact absurd ⟨other, howner, hown, halliance, hsame.symm.trans halliance⟩ hnot
          | some alliance => exact ⟨alliance, rfl, hsame.symm.trans halliance⟩
        · rename_i hdifferent
          refine ⟨other, howner, hown, fun hsame => hdifferent ?_⟩
          obtain ⟨alliance, hother, huser⟩ := Community.sameAlliance_iff.mp hsame
          rw [hother, huser]

/-- Two users without an alliance are enemies and taken for allies. -/
theorem BothAlone.mistaken (halone : db.BothAlone c user planet) :
    (db.inCommunity c).relation user planet = .allied ∧
      ∀ relation, db.IsRelation c user planet relation → relation = .enemy := by
  obtain ⟨other, howner, hne, hother, huser⟩ := halone
  constructor
  · rw [db.relation_inCommunity c user planet howner hne, if_pos (hother.trans huser.symm)]
  · intro relation hrelation
    cases relation with
    | unknown => exact absurd (howner.symm.trans hrelation) nofun
    | own => exact absurd (Option.some.inj (howner.symm.trans hrelation)) hne
    | enemy => rfl
    | allied =>
        obtain ⟨found, hfound, -, hsame⟩ := hrelation
        obtain rfl : other = found := Option.some.inj (howner.symm.trans hfound)
        obtain ⟨alliance, halliance, -⟩ := Community.sameAlliance_iff.mp hsame
        exact absurd (hother.symm.trans halliance) nofun

end Db

namespace Arrival

variable (w : World) (self : Fleet) (planet : PlanetId)

/-- The report of a mission says what its target is treated as. -/
theorem mode_of_treat {arrival : Arrival} {relation : Relation} {db next : Db} {mode : ℕ}
    (hrun : (arrival.treat w self planet relation).run db = .ok mode next) : mode = arrival.mode relation := by
  unfold treat at hrun
  obtain ⟨_, _, -, hmode⟩ := run_bind_eq_ok hrun
  cases hmode
  rfl

/-- A fleet that travels to an ally stays there, and a fleet that meets an enemy does not. -/
theorem travel_allied_ne_enemy (db : Db) : (Arrival.travel.treat w self planet .allied).run db ≠
    (Arrival.travel.treat w self planet .enemy).run db := by
  intro hsame
  have hmode : 2 = Arrival.travel.mode .enemy := mode_of_treat w self planet (hsame.symm.trans rfl)
  cases hmode

/-- All missions treat their target by its real relation exactly if it is not a planet of another
user where neither of the two has an alliance; then an attack leads to a fight exactly if the owner
is another user who is no member of the attacker's alliance. -/
theorem treat_by_real_relation_iff (w : World) (c : Community) (db : Db) (self : Fleet) (planet : PlanetId) :
    (∀ arrival : Arrival, ∃ relation, db.IsRelation c self.user planet relation ∧
        (arrival.perform w self planet).run (db.inCommunity c) =
          (arrival.treat w self planet relation).run (db.inCommunity c)) ↔
      ¬∃ other, (db.planets planet).user = some other ∧ other ≠ self.user ∧
        c.allianceOf other = none ∧ c.allianceOf self.user = none := by
  constructor
  · intro hall halone
    obtain ⟨hcomputed, hreal⟩ := Db.BothAlone.mistaken c db self.user planet halone
    obtain ⟨relation, hrelation, hrun⟩ := hall .travel
    rw [perform_eq_treat, hcomputed, hreal relation hrelation] at hrun
    exact travel_allied_ne_enemy w self planet _ hrun
  · intro hnot arrival
    refine ⟨_, db.isRelation_of_not_bothAlone c self.user planet hnot, ?_⟩
    exact perform_eq_treat w self planet arrival _

/-- The owner of planet 11 is user 2; where there are no alliances, the two are allies. -/
theorem alone_taken_for_allies :
    ¬ ∀ (w : World) (c : Community) (db : Db) (self : Fleet) (planet : PlanetId) (arrival : Arrival),
      ∃ relation, db.IsRelation c self.user planet relation ∧
        (arrival.perform w self planet).run (db.inCommunity c) =
          (arrival.treat w self planet relation).run (db.inCommunity c) := by
  intro hall
  let community : Community := ⟨.empty, .empty, .empty, .empty, .empty⟩
  have halone : Seeds.start.BothAlone community 1 11 := ⟨2, rfl, by decide, rfl, rfl⟩
  obtain ⟨hcomputed, hreal⟩ := halone.mistaken
  obtain ⟨relation, hrelation, hrun⟩ := hall Seeds.world community Seeds.start Seeds.scout 11 .travel
  rw [perform_eq_treat, show Seeds.scout.user = 1 from rfl, hcomputed, hreal relation hrelation] at hrun
  exact travel_allied_ne_enemy Seeds.world Seeds.scout 11 _ hrun

end Arrival

end Mmog
