import Mmog.Game.Board
import Mmog.Game.Build

/-!
# Owners and production chains

A tick of a planet's production enqueues the next one.  The pending ticks are
counted for each planet beside its owner.  Claiming a planet without an owner
starts one chain, and a tick that runs on an owned planet keeps it.
-/

namespace Mmog

open Ruby Action Game

/-- How many ticks of the planet's production are pending. -/
def Db.ticks (db : Db) (p : PlanetId) : ℕ := db.jobs.count (.produceResources p)

theorem Db.ticks_enqueue (db : Db) (timestamp : ℤ) (job : Job) (p : PlanetId) :
    Db.ticks { db with delayed := db.delayed ++ [⟨timestamp, job⟩] } p =
      db.ticks p + if job = .produceResources p then 1 else 0 := by
  have hjob : [job].count (.produceResources p) = if job = .produceResources p then 1 else 0 := by
    rw [List.count_singleton]
    exact if_congr beq_iff_eq rfl rfl
  simp only [ticks, jobs, List.map_append, List.map_singleton, List.count_append, hjob]
  omega

/-- Every building has a type. -/
def Rules.Typed (rules : Rules) (buildings : List Building) : Prop :=
  ∀ building ∈ buildings, (rules.buildingtype building.buildingtype).isSome = true

/-- Who owns the planets and how many ticks are pending for each. -/
structure Db.Chains (rules : Rules) (who : PlanetId → Option UserId) (pending : PlanetId → ℕ)
    (db : Db) : Prop where
  owner : ∀ p, (db.planets p).user = who p
  ticks : ∀ p, db.ticks p = pending p
  typed : rules.Typed db.buildings

namespace Db.Chains

variable {rules : Rules} {who : PlanetId → Option UserId} {pending : PlanetId → ℕ} {db next : Db}

/-- Only owners, jobs and buildings count. -/
theorem of_eq (hdb : db.Chains rules who pending) (howner : ∀ p, (next.planets p).user = (db.planets p).user)
    (hdelayed : next.delayed = db.delayed) (hready : next.ready = db.ready)
    (hbuildings : next.buildings = db.buildings) : next.Chains rules who pending := by
  refine ⟨fun p => (howner p).trans (hdb.owner p), fun p => ?_, hbuildings ▸ hdb.typed⟩
  rw [← hdb.ticks p, Db.ticks, Db.jobs, hdelayed, hready]
  rfl

theorem setPlanet (hdb : db.Chains rules who pending) {p : PlanetId} {planet : Planet}
    (huser : planet.user = (db.planets p).user) : (db.setPlanet p planet).Chains rules who pending := by
  refine hdb.of_eq (fun q => ?_) rfl rfl rfl
  rw [Db.setPlanet]
  dsimp only
  split
  · rename_i heq
    rw [huser, heq]
  · rfl

theorem setMoney (hdb : db.Chains rules who pending) (u : UserId) (money : ℤ) :
    (db.setMoney u money).Chains rules who pending :=
  hdb.of_eq (fun _ => rfl) rfl rfl rfl

/-- A job that is no tick can be enqueued. -/
theorem enqueue (hdb : db.Chains rules who pending) (timestamp : ℤ) {job : Job}
    (hjob : ∀ p, job ≠ .produceResources p) :
    Db.Chains rules who pending { db with delayed := db.delayed ++ [⟨timestamp, job⟩] } := by
  refine ⟨hdb.owner, fun p => ?_, hdb.typed⟩
  rw [Db.ticks_enqueue, if_neg (hjob p), add_zero, hdb.ticks p]

/-- A job that is no tick can be removed. -/
theorem remove (hdb : db.Chains rules who pending) {job : Job}
    (hjob : ∀ p, job ≠ .produceResources p) :
    Db.Chains rules who pending
      { db with delayed := db.delayed.filter fun entry => entry.job ≠ job } := by
  refine ⟨hdb.owner, fun p => ?_, hdb.typed⟩
  have hfilter : (db.delayed.filter fun entry => entry.job ≠ job).map Enqueued.job =
      (db.delayed.map Enqueued.job).filter fun other => other ≠ job := by
    rw [List.filter_map]
    rfl
  have hkeep : ((db.delayed.map Enqueued.job).filter fun other => other ≠ job).count (.produceResources p) =
      (db.delayed.map Enqueued.job).count (.produceResources p) :=
    List.count_filter (by simpa using Ne.symm (hjob p))
  have hticks := hdb.ticks p
  rw [Db.ticks, Db.jobs, List.count_append] at hticks ⊢
  rw [hfilter, hkeep]
  exact hticks

/-- A tick is enqueued. -/
theorem enqueueTick (hdb : db.Chains rules who pending) (timestamp : ℤ) (p : PlanetId) :
    Db.Chains rules who (Function.update pending p (pending p + 1))
      { db with delayed := db.delayed ++ [⟨timestamp, .produceResources p⟩] } := by
  refine ⟨hdb.owner, fun q => ?_, hdb.typed⟩
  rw [Db.ticks_enqueue, hdb.ticks q]
  by_cases heq : q = p
  · subst heq
    rw [Function.update_self, if_pos rfl]
  · have hjob : Job.produceResources p ≠ .produceResources q := fun h => heq (Job.produceResources.inj h).symm
    rw [Function.update_of_ne heq, if_neg hjob, add_zero]

theorem frame : FleetFrame (Db.Chains rules who pending) where
  fleets _ hdb := hdb.of_eq (fun _ => rfl) rfl rfl rfl
  stock := @fun _ p type n _ hdb => hdb.setPlanet (Planet.user_setStock type n _)
  spend := @fun _ p _ _ _ hdb => hdb.setPlanet (Planet.user_setStock .energy _ _)
  charge := @fun _ p _ _ hdb => hdb.setPlanet (Planet.user_setStock .energy _ _)
  money u n hdb := hdb.setMoney u n
  setting _ _ hdb := hdb.of_eq (fun _ => rfl) rfl rfl rfl
  enqueue := @fun _ timestamp _ _ hjob hdb => hdb.enqueue timestamp (by rintro p rfl; cases hjob)
  remove := @fun _ _ _ hjob hdb => hdb.remove (by rintro p rfl; cases hjob)

end Db.Chains

namespace Planet

variable {rules : Rules} {who : PlanetId → Option UserId} {pending : PlanetId → ℕ}

/-! ## Claiming -/

theorem createBuildingJob_chains (w : World) (p : PlanetId) (name : BuildingName) :
    Safe (Db.Chains rules who pending) (createBuildingJob w p name) anything := by
  refine fun db hdb => ⟨?_, fun _ _ => trivial⟩
  obtain hsame | ⟨type, u, -, -, -, hordered⟩ := createBuildingJob_outcome w p name db
  · rw [hsame]
    exact hdb
  · have hpaid : (paid db p u type).Chains rules who pending := (hdb.setMoney u _).setPlanet rfl
    rw [hordered]
    exact hpaid.enqueue _ nofun

theorem createProductionJob_chains {db : Db} (hdb : db.Chains rules who pending) (p : PlanetId) :
    ∃ next, (createProductionJob p).run db = .ok ⟨⟩ next ∧
      next.Chains rules who (Function.update pending p (pending p + 1)) :=
  ⟨_, rfl, hdb.enqueueTick _ p⟩

/-- Claiming a planet without an owner gives it one, and one more tick. -/
theorem claim_chains (w : World) {db : Db} (hdb : db.Chains rules who pending) {p : PlanetId}
    (hfree : who p = none) (u : UserId) :
    ∃ next, (claim w p u).run db = .ok ⟨⟩ next ∧
      next.Chains rules (Function.update who p (some u)) (Function.update pending p (pending p + 1)) := by
  have hclaimed : (db.setPlanet p { db.planets p with user := some u }).Chains rules
      (Function.update who p (some u)) pending := by
    refine ⟨fun q => ?_, hdb.ticks, hdb.typed⟩
    by_cases heq : q = p
    · subst heq
      simp [Db.setPlanet]
    · simpa [Db.setPlanet, heq] using hdb.owner q
  obtain ⟨next, hnext, hrun⟩ := claim_of_free (J := fun _ db => db.Chains rules _ pending)
    ((hdb.owner p).trans hfree) hclaimed fun _ name db hdb => by
      have huser := (hdb.owner p).trans (Function.update_self p (some u) who)
      refine ⟨_, startBuilding_run w huser name, ?_⟩
      exact Db.Chains.setPlanet ((createBuildingJob_chains w p name).after hdb) rfl
  exact ⟨_, hrun, hnext.enqueueTick _ p⟩

end Planet

end Mmog
